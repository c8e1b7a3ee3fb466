import Libjingle.Base.ByteBuffer
import Libjingle.Base.FifoBuffer

/-! `talk_base::ByteBuffer` as it keeps its bytes: one allocation and offsets
into it. Capacity is counted from the read offset, and `Resize` slides the
unread bytes to the front of the allocation or copies them to a larger one. -/

namespace Libjingle

namespace ByteBuffer

inductive ByteOrder
  | network
  | host
  deriving DecidableEq, Repr

structure Memory where
  bytes : Nat → UInt8
  size : Nat
  start : Nat
  end_ : Nat
  version : Int32
  byteOrder : ByteOrder

structure ReadPosition where
  start : Nat
  version : Int32
  deriving DecidableEq, Repr

namespace Memory

/-- `Construct`; `heap` is what a new allocation contains, and `none` is the
exception thrown for one that is too large. -/
def construct (heap : Nat → UInt8) (bytes : Option (List UInt8)) (len : Nat)
    (byteOrder : ByteOrder) : Option Memory :=
  if len > maxAllocation then none
  else some {
    bytes := Circular.blit heap 0 ((bytes.getD []).take len)
    size := len
    start := 0
    end_ := if bytes.isSome then len else 0
    version := 0
    byteOrder }

def length (b : Memory) : Nat := sizeSub b.end_ b.start

def capacity (b : Memory) : Nat := sizeSub b.size b.start

def resize (heap : Nat → UInt8) (b : Memory) (size : Nat) : Option Memory :=
  let len := min b.length size
  let moved := Circular.slice b.bytes b.start len
  if size ≤ b.size then
    some { b with
      bytes := Circular.blit b.bytes 0 moved
      start := 0
      end_ := len
      version := b.version + 1 }
  else
    let newSize := max size (3 * b.size % sizeModulus / 2)
    if newSize > maxAllocation then none
    else some { b with
      bytes := Circular.blit heap 0 moved
      size := newSize
      start := 0
      end_ := len
      version := b.version + 1 }

/-- The offset that the returned pointer has in the allocation, and the buffer. -/
def reserveWriteBuffer (heap : Nat → UInt8) (b : Memory) (len : Nat) : Option (Nat × Memory) :=
  let need := sizeAdd b.length len
  (if need > b.capacity then b.resize heap need else some b).map fun b =>
    (b.end_, { b with end_ := sizeAdd b.end_ len })

def writeBytes (heap : Nat → UInt8) (b : Memory) (val : List UInt8) : Option Memory :=
  (b.reserveWriteBuffer heap val.length).map fun reserved =>
    { reserved.2 with bytes := Circular.blit reserved.2.bytes reserved.1 val }

/-- What is copied out, and the buffer; `none` is the result `false`. -/
def readBytes (b : Memory) (len : Nat) : Option (List UInt8) × Memory :=
  if len > b.length then (none, b)
  else (some (Circular.slice b.bytes b.start len), { b with start := sizeAdd b.start len })

/-- A read of `len` bytes into a variable, which is `none` for a null pointer.
The variable is returned as the read leaves it. -/
def readInto {α : Type} (decode : List UInt8 → α) (len : Nat) (b : Memory) (val : Option α) :
    Bool × Option α × Memory :=
  match val with
  | none => (false, none, b)
  | some old =>
    let read := b.readBytes len
    (read.1.isSome, some ((read.1.map decode).getD old), read.2)

section Integers

variable (isHostBigEndian : Bool)

/-- What is stored for an integer of `k` bytes, and so what is written of it. -/
def stored (b : Memory) (k n : Nat) : List UInt8 :=
  hostBytes isHostBigEndian k
    (if b.byteOrder = .network then hostToNetwork isHostBigEndian k n else n)

/-- The integer loaded from the `k` bytes that were read. -/
def loaded (b : Memory) (k : Nat) (v : List UInt8) : Nat :=
  if b.byteOrder = .network then networkToHost isHostBigEndian k (ofHostBytes isHostBigEndian v)
  else ofHostBytes isHostBigEndian v

/-- A value of 24 bits is kept in 32; its first byte is skipped on this condition. -/
def skipsFirst (b : Memory) : Bool := b.byteOrder = .network || isHostBigEndian

def readUInt8 (b : Memory) (val : Option UInt8) : Bool × Option UInt8 × Memory :=
  readInto (·.headD 0) 1 b val

def readUInt16 (b : Memory) (val : Option UInt16) : Bool × Option UInt16 × Memory :=
  readInto (fun v => UInt16.ofNat (b.loaded isHostBigEndian 2 v)) 2 b val

def readUInt24 (b : Memory) (val : Option UInt32) : Bool × Option UInt32 × Memory :=
  readInto (fun v => UInt32.ofNat (b.loaded isHostBigEndian 4
    (if b.skipsFirst isHostBigEndian then 0 :: v else v ++ [0]))) 3 b val

def readUInt32 (b : Memory) (val : Option UInt32) : Bool × Option UInt32 × Memory :=
  readInto (fun v => UInt32.ofNat (b.loaded isHostBigEndian 4 v)) 4 b val

def readUInt64 (b : Memory) (val : Option UInt64) : Bool × Option UInt64 × Memory :=
  readInto (fun v => UInt64.ofNat (b.loaded isHostBigEndian 8 v)) 8 b val

def writeUInt8 (heap : Nat → UInt8) (b : Memory) (val : UInt8) : Option Memory :=
  b.writeBytes heap [val]

def writeUInt16 (heap : Nat → UInt8) (b : Memory) (val : UInt16) : Option Memory :=
  b.writeBytes heap (b.stored isHostBigEndian 2 val.toNat)

def writeUInt24 (heap : Nat → UInt8) (b : Memory) (val : UInt32) : Option Memory :=
  let v := b.stored isHostBigEndian 4 val.toNat
  b.writeBytes heap ((if b.skipsFirst isHostBigEndian then v.drop 1 else v).take 3)

def writeUInt32 (heap : Nat → UInt8) (b : Memory) (val : UInt32) : Option Memory :=
  b.writeBytes heap (b.stored isHostBigEndian 4 val.toNat)

def writeUInt64 (heap : Nat → UInt8) (b : Memory) (val : UInt64) : Option Memory :=
  b.writeBytes heap (b.stored isHostBigEndian 8 val.toNat)

end Integers

def readString (b : Memory) (val : Option (List UInt8)) (len : Nat) :
    Bool × Option (List UInt8) × Memory :=
  match val with
  | none => (false, none, b)
  | some val =>
    if len > b.length then (false, some val, b)
    else (true, some (val ++ Circular.slice b.bytes b.start len),
      { b with start := sizeAdd b.start len })

def writeString (heap : Nat → UInt8) (b : Memory) (val : List UInt8) : Option Memory :=
  b.writeBytes heap val

def consume (b : Memory) (size : Nat) : Bool × Memory :=
  if size > b.length then (false, b) else (true, { b with start := sizeAdd b.start size })

def getReadPosition (b : Memory) : ReadPosition := ⟨b.start, b.version⟩

def setReadPosition (b : Memory) (position : ReadPosition) : Bool × Memory :=
  if position.version ≠ b.version then (false, b)
  else (true, { b with start := position.start })

def clear (b : Memory) : Memory :=
  { b with
    bytes := fun i => if i < b.size then 0 else b.bytes i
    start := 0
    end_ := 0
    version := b.version + 1 }

/-- The bytes in front of `end_`, those already read included. -/
def kept (b : Memory) : List UInt8 := Circular.slice b.bytes 0 b.end_

def unread (b : Memory) : List UInt8 := b.kept.drop b.start

structure InBounds (b : Memory) : Prop where
  start_le : b.start ≤ b.end_
  end_le : b.end_ ≤ b.size
  size_le : b.size ≤ maxAllocation

@[simp] theorem length_kept (b : Memory) : b.kept.length = b.end_ := Circular.length_slice _ _ _

@[simp] theorem length_unread (b : Memory) : b.unread.length = b.end_ - b.start := by
  simp [unread]

theorem unread_eq_slice (b : Memory) :
    b.unread = Circular.slice b.bytes b.start (b.end_ - b.start) := by
  rw [unread, kept, Circular.slice_drop, Nat.zero_add]

section Bounds

variable {b : Memory}

theorem InBounds.lt_modulus (h : b.InBounds) : b.size < sizeModulus :=
  Nat.lt_of_le_of_lt h.size_le (by decide)

theorem InBounds.length_eq (h : b.InBounds) : b.length = b.unread.length := by
  have hlt := h.lt_modulus
  have hend := h.end_le
  rw [length, length_unread, FifoBuffer.sizeSub_of_le (by omega) h.start_le]

theorem InBounds.capacity_eq (h : b.InBounds) : b.capacity = b.size - b.start := by
  have hend := h.end_le
  exact FifoBuffer.sizeSub_of_le h.lt_modulus (Nat.le_trans h.start_le hend)

theorem construct_inBounds {heap : Nat → UInt8} {bytes : Option (List UInt8)} {len : Nat}
    {byteOrder : ByteOrder} (h : construct heap bytes len byteOrder = some b) : b.InBounds := by
  rw [construct] at h
  split at h
  · cases h
  · rename_i hlen
    obtain rfl := Option.some.inj h
    have hend : (if bytes.isSome then len else 0) ≤ len := by split <;> omega
    exact ⟨Nat.zero_le _, hend, Nat.le_of_not_lt hlen⟩

/-- `Resize` keeps as many of the unread bytes as fit in the size asked for,
and puts them at the front. -/
theorem InBounds.resize_eq (h : b.InBounds) {heap : Nat → UInt8} {size : Nat} {b' : Memory}
    (hr : b.resize heap size = some b') :
    b'.InBounds ∧ b'.kept = b.unread.take size ∧ b'.start = 0 ∧ b'.version = b.version + 1 ∧
      b'.byteOrder = b.byteOrder ∧ size ≤ b'.size := by
  have hlen := h.length_eq
  have hend := h.end_le
  have hmoved : Circular.slice b.bytes b.start (min b.length size) = b.unread.take size := by
    rw [unread_eq_slice, Circular.slice_take, hlen, length_unread, Nat.min_comm]
  have hkept (mem : Nat → UInt8) : Circular.slice
      (Circular.blit mem 0 (Circular.slice b.bytes b.start (min b.length size))) 0
      (min b.length size) = b.unread.take size := by
    have hblit := Circular.slice_blit mem 0 (Circular.slice b.bytes b.start (min b.length size))
    rw [Circular.length_slice] at hblit
    exact hblit.trans hmoved
  rw [length_unread] at hlen
  simp only [resize] at hr
  split at hr
  · rename_i hsize
    obtain rfl := Option.some.inj hr
    exact ⟨⟨Nat.zero_le _, by dsimp only; omega, h.size_le⟩, hkept _, rfl, rfl, rfl, hsize⟩
  · split at hr
    · cases hr
    · rename_i hsize halloc
      obtain rfl := Option.some.inj hr
      exact ⟨⟨Nat.zero_le _, by dsimp only; omega, Nat.le_of_not_lt halloc⟩, hkept _, rfl, rfl,
        rfl, Nat.le_max_left _ _⟩

/-- The buffer as it was or with its unread bytes at the front, such that `len`
bytes more fit behind them. -/
structure MakesRoom (b : Memory) (len : Nat) (mid : Memory) : Prop where
  inBounds : mid.InBounds
  fits : mid.end_ + len ≤ mid.size
  byteOrder : mid.byteOrder = b.byteOrder
  moved : mid = b ∨ mid.kept = b.unread ∧ mid.start = 0 ∧ mid.version = b.version + 1

theorem InBounds.reserveWriteBuffer_eq (h : b.InBounds) {heap : Nat → UInt8} {len : Nat}
    (hlen : b.unread.length + len < sizeModulus) {reserved : Nat × Memory}
    (hr : b.reserveWriteBuffer heap len = some reserved) :
    ∃ mid, b.MakesRoom len mid ∧ reserved = (mid.end_, { mid with end_ := mid.end_ + len }) := by
  have hneed : sizeAdd b.length len = b.unread.length + len := by
    rw [h.length_eq]
    exact Nat.mod_eq_of_lt hlen
  simp only [reserveWriteBuffer, hneed, h.capacity_eq] at hr
  obtain ⟨mid, hmid, rfl⟩ := Option.map_eq_some_iff.mp hr
  have hroom : b.MakesRoom len mid := by
    split at hmid
    · obtain ⟨hin, hkept, hstart, hversion, horder, hsize⟩ := h.resize_eq hmid
      have hall : mid.kept = b.unread := by
        rw [hkept]
        exact List.take_of_length_le (Nat.le_add_right _ _)
      have hend : mid.end_ = b.unread.length := by rw [← length_kept, hall]
      exact ⟨hin, hend ▸ hsize, horder, .inr ⟨hall, hstart, hversion⟩⟩
    · rename_i hfree
      obtain rfl := Option.some.inj hmid
      have hstart := h.start_le
      have hend := h.end_le
      rw [length_unread] at hfree
      exact ⟨h, by omega, rfl, .inl rfl⟩
  refine ⟨mid, hroom, ?_⟩
  have hfits := hroom.fits
  have hlt := hroom.inBounds.lt_modulus
  rw [sizeAdd, Nat.mod_eq_of_lt (by omega)]

theorem MakesRoom.kept_append {len : Nat} {mid : Memory} (h : b.MakesRoom len mid)
    (src : List UInt8) :
    let b' := { mid with end_ := mid.end_ + len, bytes := Circular.blit mid.bytes mid.end_ src }
    b'.InBounds ∧ b'.kept = mid.kept ++ Circular.slice b'.bytes mid.end_ len := by
  have hstart := h.inBounds.start_le
  refine ⟨⟨by dsimp only; omega, h.fits, h.inBounds.size_le⟩, ?_⟩
  simp only [kept]
  rw [Circular.slice_append, Nat.zero_add, Circular.slice_blit_of_le _ _ (by omega)]

theorem MakesRoom.unread_eq {len : Nat} {mid : Memory} (h : b.MakesRoom len mid) :
    mid.unread = b.unread := by
  rcases h.moved with rfl | ⟨hkept, hstart, -⟩
  · rfl
  · rw [unread, hkept, hstart, List.drop_zero]

theorem MakesRoom.unread_append {len : Nat} {mid b' : Memory} (h : b.MakesRoom len mid)
    {data : List UInt8} (hkept : b'.kept = mid.kept ++ data) (hstart : b'.start = mid.start) :
    b'.unread = b.unread ++ data := by
  have hle : mid.start ≤ mid.kept.length := by
    rw [length_kept]
    exact h.inBounds.start_le
  rw [unread, hkept, hstart, List.drop_append_of_le_length hle, ← h.unread_eq, unread]

theorem InBounds.writeBytes_eq (h : b.InBounds) {heap : Nat → UInt8} {val : List UInt8}
    (hlen : b.unread.length + val.length < sizeModulus) {b' : Memory}
    (hw : b.writeBytes heap val = some b') :
    ∃ mid, b.MakesRoom val.length mid ∧ b'.InBounds ∧ b'.kept = mid.kept ++ val ∧
      b'.start = mid.start ∧ b'.version = mid.version ∧ b'.byteOrder = mid.byteOrder := by
  obtain ⟨reserved, hr, rfl⟩ := Option.map_eq_some_iff.mp hw
  obtain ⟨mid, hmid, rfl⟩ := h.reserveWriteBuffer_eq hlen hr
  obtain ⟨hin, hkept⟩ := hmid.kept_append val
  rw [Circular.slice_blit] at hkept
  exact ⟨mid, hmid, hin, hkept, rfl, rfl, rfl⟩

theorem InBounds.advance (h : b.InBounds) {len : Nat} (hlen : len ≤ b.unread.length) :
    sizeAdd b.start len = b.start + len ∧ b.start + len ≤ b.end_ := by
  have hlt := h.lt_modulus
  have hend := h.end_le
  have hstart := h.start_le
  rw [length_unread] at hlen
  exact ⟨Nat.mod_eq_of_lt (by omega), by omega⟩

theorem slice_unread {len : Nat} (hlen : len ≤ b.unread.length) :
    Circular.slice b.bytes b.start len = b.unread.take len := by
  rw [unread_eq_slice, Circular.slice_take, ← length_unread, Nat.min_eq_left hlen]

theorem InBounds.readBytes_eq (h : b.InBounds) (len : Nat) :
    b.readBytes len =
      if len ≤ b.unread.length then (some (b.unread.take len), { b with start := b.start + len })
      else (none, b) := by
  rw [readBytes, h.length_eq]
  by_cases hlen : len ≤ b.unread.length
  · rw [if_neg (Nat.not_lt.mpr hlen), if_pos hlen, slice_unread hlen, (h.advance hlen).1]
  · rw [if_pos (Nat.lt_of_not_le hlen), if_neg hlen]

theorem unread_seek (b : Memory) (len : Nat) :
    ({ b with start := b.start + len } : Memory).unread = b.unread.drop len := by
  simp only [unread, List.drop_drop]
  rfl

theorem bytes_eq_of_kept {b' : Memory} {since : List UInt8} (h : b'.kept = b.kept ++ since)
    {i : Nat} (hi : i < b.end_) : b'.bytes i = b.bytes i := by
  have hcell (m : Memory) (hm : i < m.end_) : m.kept[i]? = some (m.bytes i) := by
    have hlen : i < m.kept.length := by rwa [length_kept]
    rw [List.getElem?_eq_getElem hlen]
    simp only [kept, Circular.getElem_slice, Nat.zero_add]
  have hlen : b'.end_ = b.end_ + since.length := by
    rw [← length_kept, h, List.length_append, length_kept]
  have heq : b'.kept[i]? = b.kept[i]? := by
    rw [h, List.getElem?_append_left (by rwa [length_kept])]
  rw [hcell b' (by omega), hcell b hi] at heq
  exact Option.some.inj heq

end Bounds

section ByteOrders

variable (isHostBigEndian : Bool) (b : Memory)

/-- The `k` bytes of an integer in the byte order of the buffer. -/
def inOrder (k n : Nat) : List UInt8 :=
  match b.byteOrder with
  | .network => BigEndian.encode k n
  | .host => hostBytes isHostBigEndian k n

theorem length_inOrder (k n : Nat) : (b.inOrder isHostBigEndian k n).length = k := by
  cases horder : b.byteOrder <;> simp [inOrder, horder]

theorem stored_eq (k n : Nat) : b.stored isHostBigEndian k n = b.inOrder isHostBigEndian k n := by
  cases horder : b.byteOrder with
  | network => simp [stored, inOrder, horder, hostBytes_hostToNetwork]
  | host => simp [stored, inOrder, horder]

theorem inOrder_loaded {k : Nat} {v : List UInt8} (h : v.length = k) :
    b.loaded isHostBigEndian k v < 256 ^ k ∧
      b.inOrder isHostBigEndian k (b.loaded isHostBigEndian k v) = v := by
  cases horder : b.byteOrder with
  | network =>
    have hval : b.loaded isHostBigEndian k v = BigEndian.decode v := by
      simp [loaded, horder, networkToHost_ofHostBytes isHostBigEndian h]
    rw [hval, inOrder, horder, ← h]
    exact ⟨BigEndian.decode_lt v, BigEndian.encode_decode v⟩
  | host =>
    have hval : b.loaded isHostBigEndian k v = ofHostBytes isHostBigEndian v := by
      simp [loaded, horder]
    rw [hval, inOrder, horder]
    exact ⟨ofHostBytes_lt isHostBigEndian h, hostBytes_ofHostBytes isHostBigEndian h⟩

theorem stored24_eq (n : Nat) :
    (if b.skipsFirst isHostBigEndian then (b.stored isHostBigEndian 4 n).drop 1
      else b.stored isHostBigEndian 4 n).take 3 = b.inOrder isHostBigEndian 3 n := by
  have hdrop : (BigEndian.encode 4 n).drop 1 = BigEndian.encode 3 n := rfl
  have htake : (BigEndian.encode 3 n).take 3 = BigEndian.encode 3 n :=
    List.take_of_length_le (by simp)
  rw [stored_eq]
  cases horder : b.byteOrder with
  | network => simp [inOrder, skipsFirst, horder, hdrop, htake]
  | host =>
    cases isHostBigEndian with
    | true => simp [inOrder, skipsFirst, horder, hostBytes, hdrop, htake]
    | false =>
      have hcons : BigEndian.encode 4 n = UInt8.ofNat (n / 256 ^ 3) :: BigEndian.encode 3 n := rfl
      have hrev : ((BigEndian.encode 3 n).reverse ++ [UInt8.ofNat (n / 256 ^ 3)]).take 3 =
          (BigEndian.encode 3 n).reverse :=
        List.take_left' (by simp)
      simp [inOrder, skipsFirst, horder, hostBytes, hcons, hrev]

theorem inOrder_loaded24 {v : List UInt8} (h : v.length = 3) :
    let val := b.loaded isHostBigEndian 4
      (if b.skipsFirst isHostBigEndian then 0 :: v else v ++ [0])
    val < 256 ^ 3 ∧ b.inOrder isHostBigEndian 3 val = v := by
  have hzero (bytes : List UInt8) : BigEndian.decode (0 :: bytes) = BigEndian.decode bytes := by
    simp [BigEndian.decode]
  have hbig : BigEndian.decode v < 256 ^ 3 ∧ BigEndian.encode 3 (BigEndian.decode v) = v := by
    rw [← h]
    exact ⟨BigEndian.decode_lt v, BigEndian.encode_decode v⟩
  cases horder : b.byteOrder with
  | network =>
    have hlen : (0 :: v).length = 4 := by simp [h]
    simpa [skipsFirst, loaded, inOrder, horder, networkToHost_ofHostBytes isHostBigEndian hlen,
      hzero] using hbig
  | host =>
    cases isHostBigEndian with
    | true => simpa [skipsFirst, loaded, inOrder, horder, ofHostBytes, hostBytes, hzero] using hbig
    | false =>
      have hrev : (v ++ [0]).reverse = 0 :: v.reverse := by simp
      have hval : ofHostBytes false (v ++ [0]) = ofHostBytes false v := by
        simp [ofHostBytes, hzero]
      simp only [skipsFirst, loaded, inOrder, horder]
      simp only [reduceCtorEq, decide_false, Bool.or_false, if_false, Bool.false_eq_true, hval]
      exact ⟨ofHostBytes_lt false h, hostBytes_ofHostBytes false h⟩

end ByteOrders

end Memory

end ByteBuffer

end Libjingle
